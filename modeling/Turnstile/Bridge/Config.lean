import Turnstile.Json.Record
import Turnstile.Text.Duration
import Turnstile.Run.Trail

/-!
This module contains the settings of bridges.
-/

namespace Turnstile

open Document Fields

inductive Transport where
  | stdio
  deriving DecidableEq, Repr

instance : Document Transport where
  encode | .stdio => "stdio"
  decode value := require <| match tag? value with
    | some "stdio" => some .stdio
    | _ => none

structure BridgeConfig where
  command : String
  args : List String
  env : Table String
  transport : Transport
  timeout : UInt64
  /-- How many milliseconds to wait after the server has been told that it is initialized. -/
  settle : UInt64
  clientName : String
  clientVersion : String
  protocolVersion : String
  cancelOnTimeout : Bool
  deriving DecidableEq

namespace BridgeConfig

def standard : BridgeConfig where
  command := ""
  args := []
  env := {}
  transport := .stdio
  timeout := 30000
  settle := 50
  clientName := "trellis"
  clientVersion := "0.1.0"
  protocolVersion := "2024-11-05"
  cancelOnTimeout := true

instance : Inhabited BridgeConfig := ⟨standard⟩

def ofCommand (command : String) : BridgeConfig :=
  { standard with command }

def withTimeout (config : BridgeConfig) (timeout : Duration) : BridgeConfig :=
  { config with timeout := timeout.toMilliseconds }

def withSettle (config : BridgeConfig) (settle : Duration) : BridgeConfig :=
  { config with settle := settle.toMilliseconds }

def timeoutDuration (config : BridgeConfig) : Duration :=
  .ofMilliseconds config.timeout.toNat

def settleDuration (config : BridgeConfig) : Duration :=
  .ofMilliseconds config.settle.toNat

def commandLine (config : BridgeConfig) : String :=
  String.intercalate " " (config.command :: config.args)

instance : Document BridgeConfig where
  encode c := .object [("command", encode c.command), ("args", encode c.args),
    ("env", encode c.env), ("transport", encode c.transport), ("timeout_ms", encode c.timeout),
    ("settle_ms", encode c.settle), ("client_name", encode c.clientName),
    ("client_version", encode c.clientVersion), ("protocol_version", encode c.protocolVersion),
    ("cancel_on_timeout", encode c.cancelOnTimeout)]
  decode := Fields.decode <| mk <$> defaulted "command" standard.command <*>
    defaulted "args" standard.args <*> defaulted "env" standard.env <*>
    defaulted "transport" standard.transport <*> defaulted "timeout_ms" standard.timeout <*>
    defaulted "settle_ms" standard.settle <*> defaulted "client_name" standard.clientName <*>
    defaulted "client_version" standard.clientVersion <*>
    defaulted "protocol_version" standard.protocolVersion <*>
    defaulted "cancel_on_timeout" standard.cancelOnTimeout

end BridgeConfig

end Turnstile
