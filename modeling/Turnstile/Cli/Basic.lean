import Turnstile.Cli.Arguments
import Turnstile.Cli.Config
import Turnstile.Hat.Composition
import Turnstile.Hat.Tools
import Turnstile.Server.Files

/-!
This module contains the commands of the command line program: checking, composing and running machines,
and using tool servers. The files and the programs that commands can reach are given to them.
-/

namespace Turnstile

namespace Cli

inductive CliError where
  | config (error : ConfigError)
  | unreadableMachine (path reason : String)
  | invalidMachine (path : String) (error : CommonError)
  | unreadableEvent (path reason : String)
  | invalidEvent (path reason : String)
  | hat (error : HatError)
  | run (error : RunError)
  | bridge (error : BridgeError)
  | invalidJson (text reason : String)
  | problems (count : Nat) (machine : String)
  | incomplete (reason : String)
  deriving DecidableEq

namespace CliError

/-- What has failed, and what it has failed for. -/
def chain : CliError → List String
  | config error => [error.message]
  | unreadableMachine path reason => [s!"reading machine {path}", reason]
  | invalidMachine path error => [s!"parsing machine {path}", error.message]
  | unreadableEvent path reason => [s!"reading event {path}", reason]
  | invalidEvent path reason => [s!"parsing event {path}", reason]
  | hat error => [error.message]
  | run error => [error.message]
  | bridge error => [error.message]
  | invalidJson text reason => [s!"invalid JSON {quoted text}: {reason}"]
  | problems count machine => [s!"{count} problem(s) in {machine}"]
  | incomplete reason => [s!"run did not complete: {reason}"]

end CliError

/-- Contexts have nothing in them that does not belong to this library. -/
def extension : Extension :=
  ⟨Empty, Empty.elim, Empty, Empty, Empty⟩

def conduct : Conduct extension Pool :=
  ⟨fun action => action.elim, fun provider => provider.elim, fun hook => hook.elim⟩

def surroundings : Surroundings extension Pool :=
  conduct.surroundings

def baseContext : Context extension :=
  Context.empty.addAction Echo.name .echo

def loadMachine (read : ReadFile) (path : String) : Except CliError Machine := do
  let text ← (read path).mapError (.unreadableMachine path)
  (Machine.ofText text).mapError (.invalidMachine path)

def loadEvent (read : ReadFile) (path : String) : Except CliError Event := do
  let text ← (read path).mapError (.unreadableEvent path)
  (Document.ofText text).mapError fun fault : Fault => .invalidEvent path fault.reason

def parseJson (text : String) : Except CliError Json :=
  match Json.parse? text with
  | some value => .ok value
  | none => .error (.invalidJson text Fault.malformed.reason)

/-- Applies the hats of a machine. The bridges that are started for it are shut down at the end. -/
def compose (programs : Programs) (config : CliConfig) (machine : Machine) :
    Except CliError (Composition extension) :=
  match applyHats .standard baseContext machine (Pool.ofPrograms programs) with
  | (.error error, _) => .error (.hat error)
  | (.ok composition, pool) =>
    let (context, _, _) := composition.context.runStopHooks surroundings.release
      config.run.hookDuration pool
    .ok { composition with context }

structure RunReport where
  completed : Bool
  /-- Why the run has not completed. -/
  error : Option String
  trail : Trail
  deriving DecidableEq

namespace RunReport

def document (report : RunReport) : Json :=
  .object <| [("completed", .bool report.completed)] ++
    Json.optionalMember "error" report.error ++ [("trail", Document.encode report.trail)]

end RunReport

/-- Why an outcome is not a completed run. -/
def failureOf (config : CliConfig) : Outcome extension → Option String
  | .completed _ => none
  | .failed error _ => some error.message
  | .timedOut => some s!"no result after {config.runDuration}"
  | .stopped => some "run stopped"

/-- Composes a machine and runs it from one event on. -/
def run (programs : Programs) (config : CliConfig) (machine : Machine) (event : Event) :
    Except CliError RunReport := do
  let (composed, pool) := applyHats .standard baseContext machine (Pool.ofPrograms programs)
  let composition ← composed.mapError .hat
  let started ← (Run.start ⟨⟨0⟩⟩ composition.machine composition.context [] config.run).mapError .run
  let submitted ← ((Timeline.start started pool).submit event).mapError .run
  let (outcome, timeline) := submitted.wait surroundings config.runDuration
  let (stopped, timeline) := timeline.stop surroundings
  let _ ← stopped.mapError .run
  let error := failureOf config outcome
  return ⟨error.isNone, error, timeline.run.loop.trail⟩

def listTools (programs : Programs) (config : BridgeConfig) : Except CliError (List Tool) := do
  let bridge ← (Bridge.start programs ⟨⟨0⟩⟩ config).mapError .bridge
  return bridge.tools

def callTool (programs : Programs) (config : BridgeConfig) (call : ToolCall) :
    Except CliError Json := do
  let bridge ← (Bridge.start programs ⟨⟨0⟩⟩ config).mapError .bridge
  (bridge.call call config.timeoutDuration).1.mapError .bridge

/-! ## Commands -/

structure Report where
  output : List String
  /-- The lines on standard error, apart from those about the error. -/
  notes : List String
  error : Option CliError
  deriving DecidableEq

namespace Report

def ofOutput (output : List String) : Report :=
  ⟨output, [], none⟩

def ofError (error : CliError) : Report :=
  ⟨[], [], some error⟩

/-- What comes of something that either gives a report or fails before there is any. -/
def ofExcept : Except CliError Report → Report
  | .ok report => report
  | .error error => ofError error

def code (report : Report) : UInt8 :=
  if report.error.isSome then 1 else 0

end Report

def validationReport (machine : Machine) : Report :=
  match machine.problems with
  | [] => .ofOutput [s!"{machine.id} {machine.version}: ok"]
  | problems =>
    ⟨[], problems.flatMap fun problem => printedLines (toString problem),
      some (.problems problems.length machine.id)⟩

def runReport (report : RunReport) : Report :=
  ⟨[report.document.pretty], [], report.error.map .incomplete⟩

def perform (read : ReadFile) (programs : Programs) (config : CliConfig) :
    Command → Except CliError Report
  | .validate path => do
    return validationReport (← loadMachine read path)
  | .compose path => do
    let composition ← compose programs config (← loadMachine read path)
    let notes := composition.warnings.flatMap fun warning => printedLines s!"warning: {warning}"
    return ⟨[composition.machine.pretty], notes, none⟩
  | .tools command args => do
    let tools ← listTools programs (config.bridgeFor command args)
    return .ofOutput [(Document.encode tools).pretty]
  | .call command args tool arguments => do
    let call : ToolCall := ⟨tool, ← parseJson arguments⟩
    return .ofOutput [(← callTool programs (config.bridgeFor command args) call).pretty]
  | .run machinePath eventPath timeout => do
    let config := timeout.elim config fun seconds =>
      config.withRunTimeout (.ofSeconds seconds.toNat)
    let machine ← loadMachine read machinePath
    let event ← loadEvent read eventPath
    return runReport (← run programs config machine event)

/-- Does what is asked for on a command line that is in order. -/
def execute (read : ReadFile) (programs : Programs) (asked : Invocation) : Report :=
  .ofExcept <| do
    let config ← (CliConfig.load read asked.config).mapError .config
    let config := { config with logFilter := asked.logFilter.getD config.logFilter }
    perform read programs config asked.command

def Invocation.paths (asked : Invocation) : List String :=
  asked.config.toList ++ match asked.command with
    | .validate machine | .compose machine => [machine]
    | .run machine event _ => [machine, event]
    | .tools .. | .call .. => []

end Cli

end Turnstile
