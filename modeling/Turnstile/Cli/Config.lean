import Turnstile.Bridge.Config
import Turnstile.Run.Config

/-!
This module contains the settings of the command line program.
-/

namespace Turnstile

open Document Fields

structure CliConfig where
  logFilter : String
  jsonLogs : Bool
  run : RunConfig
  bridge : BridgeConfig
  runTimeout : UInt64
  deriving DecidableEq

/-- Gives the text of a file, or the reason why it cannot be read. -/
abbrev ReadFile := String → Except String String

inductive ConfigError where
  | unreadable (path reason : String)
  | invalid (path reason : String)
  deriving DecidableEq, Repr

namespace ConfigError

def message : ConfigError → String
  | unreadable path reason => s!"Cannot read {path}: {reason}"
  | invalid path reason => s!"Invalid config {path}: {reason}"

instance : ToString ConfigError := ⟨message⟩

end ConfigError

namespace CliConfig

def standard : CliConfig :=
  ⟨"trellis=info", false, .standard, .standard, 60⟩

instance : Inhabited CliConfig := ⟨standard⟩

instance : Document CliConfig where
  encode c := .object [("log_filter", encode c.logFilter), ("json_logs", encode c.jsonLogs),
    ("engine", encode c.run), ("bridge", encode c.bridge),
    ("run_timeout_secs", encode c.runTimeout)]
  decode := Fields.decode <| mk <$> defaulted "log_filter" standard.logFilter <*>
    defaulted "json_logs" standard.jsonLogs <*> defaulted "engine" standard.run <*>
    defaulted "bridge" standard.bridge <*> defaulted "run_timeout_secs" standard.runTimeout

/-- Takes the settings from a file, if there is one. -/
def load (read : ReadFile) : Option String → Except ConfigError CliConfig
  | none => .ok standard
  | some path => do
    let text ← (read path).mapError (.unreadable path)
    (Document.ofText text).mapError fun fault : Fault => .invalid path fault.reason

def withRunTimeout (config : CliConfig) (timeout : Duration) : CliConfig :=
  { config with runTimeout := .ofNat timeout.toSeconds }

def runDuration (config : CliConfig) : Duration :=
  .ofSeconds config.runTimeout.toNat

def bridgeFor (config : CliConfig) (command : String) (args : List String) : BridgeConfig :=
  { config.bridge with command, args }

end CliConfig

end Turnstile
