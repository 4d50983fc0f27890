import Turnstile.Json.Record
import Turnstile.Text.Duration

/-!
This module contains the settings of runs.
-/

namespace Turnstile

open Document Fields

structure RunConfig where
  /-- How often an action that retries is invoked for one event, the first time included. -/
  maxAttempts : UInt32
  hookTimeout : UInt64
  deriving DecidableEq, Repr

namespace RunConfig

def standard : RunConfig :=
  ⟨3, 5000⟩

instance : Inhabited RunConfig := ⟨standard⟩

def withHookTimeout (config : RunConfig) (timeout : Duration) : RunConfig :=
  { config with hookTimeout := timeout.toMilliseconds }

def hookDuration (config : RunConfig) : Duration :=
  .ofMilliseconds config.hookTimeout.toNat

/-- There is always a first attempt. -/
def attempts (config : RunConfig) : UInt32 :=
  max config.maxAttempts 1

instance : Document RunConfig where
  encode c := .object
    [("max_attempts", encode c.maxAttempts), ("stop_hook_timeout_ms", encode c.hookTimeout)]
  decode := Fields.decode <| mk <$> defaulted "max_attempts" standard.maxAttempts <*>
    defaulted "stop_hook_timeout_ms" standard.hookTimeout

end RunConfig

end Turnstile
