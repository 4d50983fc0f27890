import Turnstile.Rpc.Message
import Turnstile.Text.Duration

/-!
This module contains the errors of bridges.
-/

namespace Turnstile

inductive HandshakeStep where
  | introduction
  | confirmation
  | listing
  deriving DecidableEq, Repr

namespace HandshakeStep

def name : HandshakeStep → String
  | introduction => "initialize"
  | confirmation => "initialized"
  | listing => "tools/list"

end HandshakeStep

inductive BridgeError where
  | config (reason : String)
  /-- The server could not be started. -/
  | spawn (commandLine reason : String)
  | handshake (step : HandshakeStep) (reason : String)
  /-- There was no response in time. -/
  | timeout (request : Rpc.Request) (after : Duration)
  | rpc (method : String) (error : Rpc.Error)
  | toolCallFailed (tool : String) (arguments : Json) (error : String)
  | protocol (reason : String)
  | closed
  deriving DecidableEq

namespace BridgeError

def message : BridgeError → String
  | config reason => s!"Invalid bridge config: {reason}"
  | spawn commandLine reason => s!"Failed to spawn {commandLine}: {reason}"
  | handshake step reason => s!"Handshake failed during {step.name}: {reason}"
  | timeout request after => s!"Request {request.id} ({request.method}) timed out after {after}"
  | rpc method error => s!"{method} failed: {error}"
  | toolCallFailed tool _ error => s!"Tool {tool} failed: {error}"
  | protocol reason => s!"Protocol error: {reason}"
  | closed => "Bridge is closed"

instance : ToString BridgeError := ⟨message⟩

def isTimeout : BridgeError → Bool
  | timeout .. => true
  | _ => false

end BridgeError

end Turnstile
